import Mathlib.Algebra.BigOperators.Group.Finset.Basic
import Reactor.Log.FixedBuffer

/-!
# Log — AppendFile

`AppendFile::append` over a stream that may take less than it is offered, and may fail.  The loop
runs until all is written; a call that accepts too little is reported on `stderr` if the stream
has its error flag set, and then simply made again.

The calls of `fwrite_unlocked` are numbered; a loop that has not returned when its fuel is used up
has the result `none`.

* `appendLoop_returns`, `appendLoop_spec`: when the loop returns, and what it has done then.
* `append_terminates_iff`: `append` returns if and only if the calls accept all of the data at last.
-/

namespace Reactor.Log
open Reactor.Lib

/-- A call of `fwrite_unlocked`: how much the stream takes, where more than is offered stands for
all of it, and what `ferror` then answers. -/
structure Fwrite where
  room : Nat
  ferror : Int
  deriving DecidableEq, Repr

/-- The bytes accepted of `len` offered. -/
def Fwrite.accepts (call : Fwrite) (len : Nat) : Nat := min call.room len

/-- `AppendFile` with what its stream has got. -/
structure AppendFile where
  /-- The bytes the stream `_fp` has accepted. -/
  accepted : List Byte
  /-- `_writtenBytes` -/
  writtenBytes : Nat
  /-- The errors reported on `stderr`. -/
  reports : List Int
  deriving DecidableEq, Repr

namespace AppendFile

/-- The constructor, on a new file. -/
def new : AppendFile := ⟨[], 0, []⟩

/-- `write(data, len)`, where `fwrite_unlocked` does `call`. -/
def write (f : AppendFile) (call : Fwrite) (data : List Byte) : AppendFile × Nat :=
  let n := call.accepts data.length
  ({ f with accepted := f.accepted ++ data.take n }, n)

/-- The loop of `append`, from the `i`-th call on. -/
def appendLoop (calls : Nat → Fwrite) (data : List Byte) (f : AppendFile) (i written : Nat) :
    Nat → Option AppendFile
  | 0 => none
  | fuel + 1 =>
    if written ≠ data.length then
      let remain := data.length - written
      let (f, n) := f.write (calls i) (data.drop written)
      let err := (calls i).ferror
      let f := if n ≠ remain ∧ err ≠ 0 then { f with reports := f.reports ++ [err] } else f
      appendLoop calls data f (i + 1) (written + n) fuel
    else some { f with writtenBytes := f.writtenBytes + written }

/-- `append(data, len)` -/
def append (f : AppendFile) (calls : Nat → Fwrite) (data : List Byte) (fuel : Nat) :
    Option AppendFile :=
  appendLoop calls data f 0 0 fuel

variable {calls : Nat → Fwrite} {data : List Byte} {f f' : AppendFile} {i written fuel : Nat}

/-! ### One turn of the loop -/

/-- The file after the `i`-th call. -/
def afterCall (f : AppendFile) (call : Fwrite) (data : List Byte) : AppendFile where
  accepted := f.accepted ++ data.take (call.accepts data.length)
  writtenBytes := f.writtenBytes
  reports := f.reports ++
    if call.accepts data.length ≠ data.length ∧ call.ferror ≠ 0 then [call.ferror] else []

/-- One turn of the loop: a call is made with what is left. -/
theorem appendLoop_turn (h : written ≠ data.length) :
    appendLoop calls data f i written (fuel + 1) =
      appendLoop calls data (f.afterCall (calls i) (data.drop written)) (i + 1)
        (written + (calls i).accepts (data.drop written).length) fuel := by
  rw [appendLoop, if_pos h]
  simp only [write, List.length_drop]
  congr 1
  split
  · next hshort => simp [afterCall, hshort]
  · next hall => simp [afterCall, hall]

theorem appendLoop_end (h : written = data.length) :
    appendLoop calls data f i written (fuel + 1) =
      some { f with writtenBytes := f.writtenBytes + written } := by
  rw [appendLoop, if_neg (not_not.mpr h)]

/-! ### The whole loop -/

/-- The bytes the first `k` calls may accept. -/
def roomOf (calls : Nat → Fwrite) (k : Nat) : Nat := ∑ j ∈ Finset.range k, (calls j).room

/-- After `i` calls as much is written as they had room for, up to all. -/
theorem written_succ (h : written = min (roomOf calls i) data.length) :
    written + (calls i).accepts (data.drop written).length =
      min (roomOf calls (i + 1)) data.length := by
  rw [roomOf, Finset.sum_range_succ, ← roomOf, Fwrite.accepts, List.length_drop]
  omega

/-- With calls enough to take all of the data, the loop returns. -/
theorem appendLoop_returns {k : Nat} (h : written = min (roomOf calls i) data.length)
    (hroom : data.length ≤ roomOf calls (i + k)) (hfuel : k < fuel) :
    ∃ f', appendLoop calls data f i written fuel = some f' := by
  induction k generalizing f i written fuel with
  | zero =>
    obtain ⟨fuel, rfl⟩ := Nat.exists_eq_succ_of_ne_zero (Nat.ne_of_gt hfuel)
    exact ⟨_, appendLoop_end (h.trans (Nat.min_eq_right hroom))⟩
  | succ k ih =>
    obtain ⟨fuel, rfl⟩ := Nat.exists_eq_succ_of_ne_zero (Nat.ne_of_gt (Nat.zero_lt_of_lt hfuel))
    by_cases hall : written = data.length
    · exact ⟨_, appendLoop_end hall⟩
    · rw [appendLoop_turn hall]
      refine ih (written_succ h) ?_ (Nat.lt_of_succ_lt_succ hfuel)
      rwa [Nat.add_assoc, Nat.add_comm 1 k]

/-- When the loop returns, the calls have had room for all of the data, and what was not written
before has been accepted, once and in order. -/
theorem appendLoop_spec (h : written = min (roomOf calls i) data.length)
    (he : appendLoop calls data f i written fuel = some f') :
    (∃ k, data.length ≤ roomOf calls k) ∧ f'.accepted = f.accepted ++ data.drop written ∧
      f'.writtenBytes = f.writtenBytes + data.length := by
  induction fuel generalizing f i written with
  | zero => cases he
  | succ fuel ih =>
    by_cases hall : written = data.length
    · rw [appendLoop_end hall] at he
      cases he
      refine ⟨⟨i, ?_⟩, ?_, by simp [hall]⟩
      · rw [← hall, h]
        exact Nat.min_le_left _ _
      · simp [hall]
    · rw [appendLoop_turn hall] at he
      obtain ⟨hroom, haccepted, hwritten⟩ := ih (written_succ h) he
      refine ⟨hroom, ?_, hwritten⟩
      rw [haccepted, afterCall, List.append_assoc, ← List.drop_drop, List.take_append_drop]

/-! ### What a call writes -/

/-- `append` returns after finitely many calls. -/
def Returns (f : AppendFile) (calls : Nat → Fwrite) (data : List Byte) : Prop :=
  ∃ fuel f', f.append calls data fuel = some f'

/-- If no call reports an error, the bytes accepted are the data, in order, and `_writtenBytes`
grows by their number. -/
def WritesOnce (f : AppendFile) (calls : Nat → Fwrite) (data : List Byte) : Prop :=
  ∀ fuel f', f.append calls data fuel = some f' → (∀ i, (calls i).ferror = 0) →
    f'.accepted = f.accepted ++ data ∧ f'.writtenBytes = f.writtenBytes + data.length

end AppendFile

/-- **`append` terminates if the stream takes all at last.**  For every data and every sequence of
results of `fwrite_unlocked`, `append` returns, having written everything once, if and only if for
some number of calls what they accept amounts to the length of the data; a stream that is stuck
before that keeps the loop for ever. -/
theorem append_terminates_iff (f : AppendFile) (calls : Nat → Fwrite) (data : List Byte) :
    f.Returns calls data ∧ f.WritesOnce calls data ↔
      ∃ k, data.length ≤ ∑ i ∈ Finset.range k, (calls i).room := by
  have hzero : 0 = min (AppendFile.roomOf calls 0) data.length := by
    simp [AppendFile.roomOf]
  constructor
  · rintro ⟨⟨fuel, f', he⟩, -⟩
    exact (AppendFile.appendLoop_spec hzero he).1
  · rintro ⟨k, hroom⟩
    refine ⟨⟨k + 1, ?_⟩, fun fuel f' he _ => ?_⟩
    · exact AppendFile.appendLoop_returns hzero (by rwa [Nat.zero_add]) (Nat.lt_succ_self k)
    · exact (AppendFile.appendLoop_spec hzero he).2

/-- On a full disk, where every call accepts nothing and sets the error flag, `append` of one byte
does not return. -/
theorem append_full_disk : ∃ (f : AppendFile) (calls : Nat → Fwrite),
    (∀ i, (calls i).accepts 1 ≤ 1 ∧ (calls i).ferror ≠ 0) ∧
      ∀ fuel, f.append calls [97] fuel = none := by
  refine ⟨.new, fun _ => ⟨0, 1⟩, fun _ => ⟨Nat.zero_le _, by simp⟩, fun fuel => ?_⟩
  have hstuck : ¬ AppendFile.Returns .new (fun _ => ⟨0, 1⟩) [97] := by
    rintro ⟨fuel, f', he⟩
    obtain ⟨⟨k, hroom⟩, -⟩ := AppendFile.appendLoop_spec (by simp [AppendFile.roomOf]) he
    simp [AppendFile.roomOf] at hroom
  cases he : AppendFile.append .new (fun _ => ⟨0, 1⟩) [97] fuel with
  | none => rfl
  | some f' => exact absurd ⟨fuel, f', he⟩ hstuck

end Reactor.Log
