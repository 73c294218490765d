import Mathlib.Data.Int.Init
import Mathlib.Tactic.Ring

/-!
# Residue windows

An index that is stored in a fixed number of bits is an integer reduced modulo
`modulus`.  This module answers when a window of residues contains the
residues of a whole integer interval, and how wide a window of residues can
get.
-/

namespace ModularWindow

variable {modulus lower upper : ℤ}

/-- Residues grow along an interval that stays in one block. -/
theorem emod_le_emod_of_ediv_eq
    (ordered : lower ≤ upper)
    (sameBlock : lower / modulus = upper / modulus) :
    lower % modulus ≤ upper % modulus := by
  have lowerSplit := Int.mul_ediv_add_emod lower modulus
  have upperSplit := Int.mul_ediv_add_emod upper modulus
  rw [sameBlock] at lowerSplit
  omega

/-- An interval that meets two blocks contains a multiple of the modulus that
is not its first element. -/
theorem exists_wrap
    (positive : 0 < modulus)
    (blocks : lower / modulus < upper / modulus) :
    ∃ value, lower < value ∧ value ≤ upper ∧
      value % modulus = 0 ∧ (value - 1) % modulus = modulus - 1 := by
  refine ⟨modulus * (upper / modulus), ?_, ?_, ?_, ?_⟩
  · have below : lower < modulus * (lower / modulus + 1) := by
      have split := Int.mul_ediv_add_emod lower modulus
      have residue := Int.emod_lt_of_pos lower positive
      have expanded :
          modulus * (lower / modulus + 1) =
            modulus * (lower / modulus) + modulus := by ring
      omega
    have stepUp :
        modulus * (lower / modulus + 1) ≤
          modulus * (upper / modulus) :=
      Int.mul_le_mul_of_nonneg_left blocks (Int.le_of_lt positive)
    exact lt_of_lt_of_le below stepUp
  · exact Int.mul_ediv_self_le (by omega)
  · exact Int.mul_emod_right modulus _
  · have shifted :
        modulus * (upper / modulus) - 1 =
          (modulus - 1) + modulus * (upper / modulus - 1) := by ring
    rw [shifted, Int.add_mul_emod_self_left]
    exact Int.emod_eq_of_lt (by omega) (by omega)

/-- The residues of an interval all lie in `[first, final]` exactly when the
window is everything, or the interval stays in one block and its end points
do. -/
theorem residues_between_iff
    (positive : 0 < modulus) (ordered : lower ≤ upper)
    (first final : ℤ) :
    (∀ value, lower ≤ value → value ≤ upper →
        first ≤ value % modulus ∧ value % modulus ≤ final) ↔
      (first ≤ 0 ∧ modulus - 1 ≤ final) ∨
        (lower / modulus = upper / modulus ∧
          first ≤ lower % modulus ∧ upper % modulus ≤ final) := by
  constructor
  · intro between
    by_cases sameBlock : lower / modulus = upper / modulus
    · exact
        Or.inr
          ⟨sameBlock, (between lower (le_refl lower) ordered).1,
            (between upper ordered (le_refl upper)).2⟩
    · have blocks : lower / modulus < upper / modulus :=
        lt_of_le_of_ne
          (Int.ediv_le_ediv positive ordered) sameBlock
      obtain ⟨value, above, below, residue, previous⟩ :=
        exists_wrap positive blocks
      have atValue := between value (by omega) below
      have atPrevious := between (value - 1) (by omega) (by omega)
      exact Or.inl ⟨by omega, by omega⟩
  · intro condition value above below
    rcases condition with
      ⟨full, fullUp⟩ | ⟨sameBlock, firstBound, finalBound⟩
    · have nonnegative := Int.emod_nonneg value (ne_of_gt positive)
      have bounded := Int.emod_lt_of_pos value positive
      omega
    · have lowerBlock : lower / modulus ≤ value / modulus :=
        Int.ediv_le_ediv positive above
      have upperBlock : value / modulus ≤ upper / modulus :=
        Int.ediv_le_ediv positive below
      have fromLower : lower % modulus ≤ value % modulus :=
        emod_le_emod_of_ediv_eq above (by omega)
      have toUpper : value % modulus ≤ upper % modulus :=
        emod_le_emod_of_ediv_eq below (by omega)
      omega

/-- Reducing an interval modulo `modulus` never spreads its end points. -/
theorem residue_span_le
    (positive : 0 < modulus) (ordered : lower ≤ upper) :
    upper % modulus - lower % modulus ≤ upper - lower := by
  have lowerSplit := Int.mul_ediv_add_emod lower modulus
  have upperSplit := Int.mul_ediv_add_emod upper modulus
  have blocks :
      modulus * (lower / modulus) ≤ modulus * (upper / modulus) :=
    Int.mul_le_mul_of_nonneg_left
      (Int.ediv_le_ediv positive ordered) (Int.le_of_lt positive)
  omega

end ModularWindow
