import AssocCache.Fault
import Std.Data.HashMap

/-!
# Rows of counters

A row of counters, one for each set of a store, all of them zero at first.  Only
the counters that have been written are kept, so a row for very many sets costs
nothing until its sets are used.

What a row holds is seen through `counterAt`: zeros in a fresh row
(`counterAt_zeros`), and after a write the new value at its index and no change
anywhere else (`counterAt_write`).
-/

namespace AssocCache

/-- A row of counters. -/
structure Counters where
  count : Nat
  /-- The counters that have been written, by their indices. -/
  written : Std.HashMap Nat Nat

namespace Counters

/-- The bytes of a counter. -/
def entryBytes : Nat := 4

/-- A row of zeros. -/
def zeros (count : Nat) : Except Fault Counters := do
  checkTable entryBytes count
  pure ⟨count, ∅⟩

/-- The counter at an index. -/
def counterAt (row : Counters) (index : Nat) : Except Fault Nat :=
  if index < row.count then .ok (row.written.getD index 0)
  else .error (.outOfBounds row.count index)

/-- The row with another value at an index. -/
def write (row : Counters) (index value : Nat) : Counters :=
  { row with written := row.written.insert index value }

/-- All counters, by their indices. -/
def toList (row : Counters) : List Nat :=
  (List.range row.count).map fun index => row.written.getD index 0

theorem zeros_eq_ok_iff {count : Nat} {row : Counters} :
    zeros count = .ok row ↔ entryBytes * count < 2 ^ (63 : Nat) ∧ row = ⟨count, ∅⟩ := by
  rw [← checkTable_eq_ok_iff, zeros]
  cases checkTable entryBytes count <;>
    simp [bind, Except.bind, pure, Except.pure, eq_comm]

theorem counterAt_zeros {count index : Nat} {row : Counters} (h : zeros count = .ok row)
    (hi : index < count) : row.counterAt index = .ok 0 := by
  obtain ⟨-, rfl⟩ := zeros_eq_ok_iff.1 h
  simp [counterAt, hi]

theorem counterAt_write (row : Counters) (index value other : Nat) :
    (row.write index value).counterAt other =
      if other = index ∧ index < row.count then .ok value else row.counterAt other := by
  unfold counterAt write
  by_cases h : other = index <;> grind

/-- A write to a counter that the row has changes that counter and no other. -/
theorem counterAt_write_of_eq_ok {row : Counters} {index count : Nat}
    (h : row.counterAt index = .ok count) (value other : Nat) :
    (row.write index value).counterAt other =
      if other = index then .ok value else row.counterAt other := by
  have hlt : index < row.count := by
    unfold counterAt at h
    split at h
    · assumption
    · cases h
  rw [counterAt_write]
  simp only [hlt, and_true]

end Counters

/-!
## Intervals of touches

Some policies treat one touch in every interval of a set differently, so that the
set can adapt when its working set changes.  Each set has a counter that runs
from zero up to the interval and starts again, so a set is on its interval after
every touch that completes a run of `interval + 1`.
-/

open Success

/-- Where each set stands in its interval. -/
structure Intervals where
  interval : Nat
  counters : Counters

namespace Intervals

/-- Fresh counters for some sets. -/
def start (numSets interval : Nat) : Except Fault Intervals := do
  pure ⟨interval, ← Counters.zeros numSets⟩

/-- The counter after one touch more. -/
def next (interval counter : Nat) : Nat := if interval ≤ counter then 0 else counter + 1

/-- Counts a touch of a set. -/
def touch (i : Intervals) (index : Nat) : Except Fault Intervals := do
  let counter ← i.counters.counterAt index
  pure { i with counters := i.counters.write index (next i.interval counter) }

/-- Whether the latest touch of a set completed an interval. -/
def isComplete (i : Intervals) (index : Nat) : Except Fault Bool := do
  pure ((← i.counters.counterAt index) == i.interval)

/-- After `n` touches the counter is the remainder of `n` by the length of a
run. -/
theorem next_mod (interval n : Nat) :
    next interval (n % (interval + 1)) = (n + 1) % (interval + 1) := by
  have h := Nat.mod_lt n (show 0 < interval + 1 by omega)
  rw [next, ← Nat.mod_add_mod n (interval + 1) 1]
  generalize n % (interval + 1) = r at h ⊢
  split
  · rw [show r = interval by omega, Nat.mod_self]
  · rw [Nat.mod_eq_of_lt (by omega)]

variable {i i' : Intervals}

theorem counterAt_of_start {numSets interval : Nat} (h : start numSets interval = .ok i) :
    i.interval = interval ∧ ∀ index < numSets, i.counters.counterAt index = .ok 0 := by
  obtain ⟨row, hrow, h⟩ := bind_eq_ok_iff.1 h
  cases h
  exact ⟨rfl, fun _ hindex => Counters.counterAt_zeros hrow hindex⟩

/-- A touch moves the counter of its set on, and no other. -/
theorem counterAt_of_touch {index : Nat} (htouch : i.touch index = .ok i') :
    i'.interval = i.interval ∧ ∃ count, i.counters.counterAt index = .ok count ∧
      ∀ other, i'.counters.counterAt other =
        if other = index then .ok (next i.interval count) else i.counters.counterAt other := by
  obtain ⟨count, hcount, htouch⟩ := bind_eq_ok_iff.1 htouch
  cases htouch
  exact ⟨rfl, count, hcount, Counters.counterAt_write_of_eq_ok hcount _⟩

theorem isComplete_eq {index count : Nat} (h : i.counters.counterAt index = .ok count) :
    i.isComplete index = .ok (count == i.interval) :=
  bind_eq_ok_iff.2 ⟨count, h, rfl⟩

end Intervals

end AssocCache
