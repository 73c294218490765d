import Mathlib.Data.List.Nodup
import Mathlib.Logic.Function.Iterate

/-!
# The numbers of calls (`RpcCommunicator.java`)

`getUniqueSequence` counts up from 1 and starts again before the counter can
overflow.  A call that is drawn while an earlier one of its number is still
open is a matter of the distance between the two draws.
-/

namespace LocationServer

/-- How many different numbers there are:
`Integer.MAX_VALUE - 0xffff`. -/
def sequenceLimit : Nat := 2147483647 - 0xffff

/-- `getUniqueSequence`: from the counter `_seq` to the number that is
returned, which is its next value. -/
def getUniqueSequence (seq : Int32) : Int32 :=
  (if Int32.maxValue - 0xffff ≤ seq then 0 else seq) + 1

/-- The counter after a number of draws. -/
def sequenceAfter (draws : Nat) : Int32 :=
  getUniqueSequence^[draws] 0

theorem sequenceAfter_succ (draws : Nat) :
    sequenceAfter (draws + 1) =
      getUniqueSequence (sequenceAfter draws) :=
  Function.iterate_succ_apply' getUniqueSequence draws 0

/-- A draw adds one, or starts again from one. -/
theorem toInt_getUniqueSequence {seq : Int32} (lower : 0 ≤ seq.toInt) :
    (getUniqueSequence seq).toInt =
      if (sequenceLimit : Int) ≤ seq.toInt then 1 else seq.toInt + 1 := by
  have limit : (Int32.maxValue - 0xffff).toInt = (sequenceLimit : Int) := by
    decide
  rw [getUniqueSequence]
  by_cases wraps : (sequenceLimit : Int) ≤ seq.toInt
  · rw [if_pos wraps, if_pos (Int32.le_iff_toInt_le.mpr (limit ▸ wraps))]
    decide
  · have below : ¬ Int32.maxValue - 0xffff ≤ seq := by
      rw [Int32.le_iff_toInt_le, limit]
      exact wraps
    rw [if_neg wraps, if_neg below, Int32.toInt_add]
    have small : seq.toInt < 2147418112 := by
      rw [sequenceLimit] at wraps
      omega
    have one : (1 : Int32).toInt = 1 := by decide
    rw [one]
    apply Int.bmod_eq_of_le <;> omega

theorem toInt_sequenceAfter_succ (draws : Nat) :
    (sequenceAfter (draws + 1)).toInt =
      ((draws % sequenceLimit + 1 : Nat) : Int) := by
  induction draws with
  | zero =>
      decide
  | succ draws inductionHypothesis =>
      have residue : draws % sequenceLimit < sequenceLimit :=
        Nat.mod_lt draws (by decide)
      have next :
          (draws + 1) % sequenceLimit =
            (draws % sequenceLimit + 1) % sequenceLimit :=
        (Nat.mod_add_mod draws sequenceLimit 1).symm
      rw [sequenceAfter_succ, toInt_getUniqueSequence (by omega),
        inductionHypothesis, next]
      by_cases last : draws % sequenceLimit + 1 = sequenceLimit
      · rw [last, if_pos (Int.le_refl _), Nat.mod_self]
        rfl
      · have below : draws % sequenceLimit + 1 < sequenceLimit := by omega
        rw [if_neg (by omega), Nat.mod_eq_of_lt below]
        rfl

theorem sequenceAfter_succ_eq_iff (first later : Nat) :
    sequenceAfter (first + 1) = sequenceAfter (later + 1) ↔
      first % sequenceLimit = later % sequenceLimit := by
  rw [← Int32.toInt_inj, toInt_sequenceAfter_succ, toInt_sequenceAfter_succ]
  omega

/-- Every number drawn is positive, and two of them are equal only when they
are a whole number of rounds of the counter apart. -/
theorem sequenceAfter_eq_iff (first later : Nat) :
    0 < (sequenceAfter (first + 1)).toInt ∧
      (sequenceAfter (first + 1) = sequenceAfter (later + 1) ↔
        first % sequenceLimit = later % sequenceLimit) := by
  refine ⟨?_, sequenceAfter_succ_eq_iff first later⟩
  rw [toInt_sequenceAfter_succ]
  omega

/-- The numbers of a counter that is drawn from one at a time are distinct
exactly as long as it has not started again. -/
theorem sequenceAfter_nodup_iff (draws : Nat) :
    ((List.range draws).map fun earlier =>
        sequenceAfter (earlier + 1)).Nodup ↔
      draws ≤ sequenceLimit := by
  rw [List.nodup_map_iff_inj_on List.nodup_range]
  simp only [List.mem_range, sequenceAfter_succ_eq_iff]
  constructor
  · intro distinct
    by_contra many
    have again :=
      distinct sequenceLimit (by omega) 0 (by omega) (by decide)
    exact absurd again (by decide)
  · intro few first firstBound later laterBound same
    rw [Nat.mod_eq_of_lt (by omega), Nat.mod_eq_of_lt (by omega)] at same
    exact same

end LocationServer
