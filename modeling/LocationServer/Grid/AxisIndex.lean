import LocationServer.Foundation.ModularWindow
import LocationServer.Map
import Mathlib.Algebra.Order.Floor.Ring
import Mathlib.Data.Rat.Floor
import Mathlib.Tactic.Linarith

/-!
# The index of one axis

`axisIndex` truncates a quotient toward zero, bumps it when the quotient is
not zero, and reduces the outcome to sixteen bits.  `rawIndex` is the outcome
before the reduction: `⌊div⌋ + 1` east of the origin, `⌈div⌉ + 1` west of it
and `0` at the origin itself.  So the index grows along either side of the
origin, but drops from `1` to `0` on the way to the origin from the west.

`AxisCovered` says when the 16-bit indices of two end points enclose the
indices of everything between them (`covers_iff`), and `indexCount_le` bounds
how many indices they enclose.
-/

namespace LocationServer

/-- The index of a quotient before its reduction to sixteen bits. -/
def rawIndex (div : ℚ) : ℤ :=
  if div ≠ 0 then div.num.tdiv div.den + 1 else div.num.tdiv div.den

theorem toNat_axisIndex (div : ℚ) :
    ((axisIndex div).toNat : ℤ) = rawIndex div % 65536 := by
  rw [axisIndex, rawIndex]
  split
  · rw [UInt16.toNat_add, toUInt16, UInt16.ofInt, UInt16.toNat_ofNat']
    simp only [UInt16.toNat_one]
    omega
  · rw [toUInt16, UInt16.ofInt, UInt16.toNat_ofNat']
    omega

theorem indexOfQuotient_of_ne_zero {distance size : ℚ} (nonzero : size ≠ 0) :
    indexOfQuotient distance size = axisIndex (distance / size) :=
  if_neg nonzero

/-! ## The index on either side of the origin -/

@[simp]
theorem rawIndex_zero : rawIndex 0 = 0 := by
  simp [rawIndex]

theorem rawIndex_of_pos {div : ℚ} (positive : 0 < div) :
    rawIndex div = ⌊div⌋ + 1 := by
  rw [rawIndex, if_pos positive.ne', Rat.floor_def',
    Int.tdiv_eq_ediv_of_nonneg (Rat.num_nonneg.mpr positive.le)]

theorem rawIndex_of_neg {div : ℚ} (negative : div < 0) :
    rawIndex div = ⌈div⌉ + 1 := by
  have truncated : div.num.tdiv div.den = ⌈div⌉ := by
    have numNonneg : 0 ≤ -div.num := by
      have := Rat.num_neg.mpr negative
      omega
    have floorNeg : ⌊-div⌋ = -div.num / div.den := by
      rw [Rat.floor_def', Rat.neg_num, Rat.neg_den]
    have flipped : div.num.tdiv div.den = -(-div.num).tdiv div.den := by
      rw [Int.neg_tdiv, Int.neg_neg]
    rw [flipped, Int.tdiv_eq_ediv_of_nonneg numNonneg, ← floorNeg,
      Int.floor_neg, Int.neg_neg]
  rw [rawIndex, if_pos negative.ne, truncated]

/-- East of the origin an index names a half-open interval of quotients. -/
theorem rawIndex_eq_iff_of_pos {div : ℚ} (positive : 0 < div) (value : ℤ) :
    rawIndex div = value ↔ (value : ℚ) - 1 ≤ div ∧ div < value := by
  rw [rawIndex_of_pos positive]
  constructor
  · intro equal
    have lower := Int.floor_le div
    have upper := Int.lt_floor_add_one div
    have cast : ((⌊div⌋ : ℚ) + 1) = value := by exact_mod_cast equal
    constructor <;> linarith
  · intro bounds
    obtain ⟨lower, upper⟩ := bounds
    have floorEq : ⌊div⌋ = value - 1 := by
      rw [Int.floor_eq_iff]
      push_cast
      exact ⟨lower, by linarith⟩
    omega

/-- West of the origin the interval is closed on its other side. -/
theorem rawIndex_eq_iff_of_neg {div : ℚ} (negative : div < 0) (value : ℤ) :
    rawIndex div = value ↔ (value : ℚ) - 2 < div ∧ div ≤ value - 1 := by
  rw [rawIndex_of_neg negative]
  constructor
  · intro equal
    have lower := Int.ceil_lt_add_one div
    have upper := Int.le_ceil div
    have cast : ((⌈div⌉ : ℚ) + 1) = value := by exact_mod_cast equal
    constructor <;> linarith
  · intro bounds
    obtain ⟨lower, upper⟩ := bounds
    have ceilEq : ⌈div⌉ = value - 1 := by
      rw [Int.ceil_eq_iff]
      push_cast
      exact ⟨by linarith, upper⟩
    omega

theorem one_le_rawIndex_of_pos {div : ℚ} (positive : 0 < div) :
    1 ≤ rawIndex div := by
  have floorNonneg := Int.floor_nonneg.mpr positive.le
  rw [rawIndex_of_pos positive]
  omega

theorem rawIndex_le_one_of_neg {div : ℚ} (negative : div < 0) :
    rawIndex div ≤ 1 := by
  have ceilNonpos : ⌈div⌉ ≤ 0 := Int.ceil_le.mpr (by simpa using negative.le)
  rw [rawIndex_of_neg negative]
  omega

theorem rawIndex_nonneg_of_nonneg {div : ℚ} (nonneg : 0 ≤ div) :
    0 ≤ rawIndex div := by
  rcases nonneg.eq_or_lt with rfl | positive
  · simp
  · have := one_le_rawIndex_of_pos positive
    omega

theorem rawIndex_mono_of_nonneg {left right : ℚ}
    (nonneg : 0 ≤ left) (ordered : left ≤ right) :
    rawIndex left ≤ rawIndex right := by
  rcases nonneg.eq_or_lt with rfl | positive
  · simpa using rawIndex_nonneg_of_nonneg ordered
  · rw [rawIndex_of_pos positive,
      rawIndex_of_pos (positive.trans_le ordered)]
    have := Int.floor_le_floor ordered
    omega

theorem rawIndex_mono_of_neg {left right : ℚ}
    (negative : right < 0) (ordered : left ≤ right) :
    rawIndex left ≤ rawIndex right := by
  rw [rawIndex_of_neg negative,
    rawIndex_of_neg (ordered.trans_lt negative)]
  have := Int.ceil_le_ceil ordered
  omega

/-- On the way from west to east the index drops by one at most. -/
theorem rawIndex_le_succ_of_le {left right : ℚ} (ordered : left ≤ right) :
    rawIndex left ≤ rawIndex right + 1 := by
  by_cases east : 0 ≤ left
  · have := rawIndex_mono_of_nonneg east ordered
    omega
  · have west := not_le.mp east
    by_cases stillWest : right < 0
    · have := rawIndex_mono_of_neg stillWest ordered
      omega
    · have upper := rawIndex_le_one_of_neg west
      have lower := rawIndex_nonneg_of_nonneg (not_lt.mp stillWest)
      omega

/-! ## The indices of an interval of quotients -/

/-- The least raw index of the quotients between two end points. -/
def leastIndex (first final : ℚ) : ℤ :=
  if first < 0 ∧ 0 ≤ final then min (rawIndex first) 0 else rawIndex first

/-- The greatest raw index of the quotients between two end points. -/
def greatestIndex (first final : ℚ) : ℤ :=
  if first < 0 ∧ 0 ≤ final then max (rawIndex final) 1 else rawIndex final

theorem rawIndex_between {first final div : ℚ}
    (above : first ≤ div) (below : div ≤ final) :
    leastIndex first final ≤ rawIndex div ∧
      rawIndex div ≤ greatestIndex first final := by
  rw [leastIndex, greatestIndex]
  split
  · rcases lt_trichotomy div 0 with negative | rfl | positive
    · have lower := rawIndex_mono_of_neg negative above
      have upper := rawIndex_le_one_of_neg negative
      omega
    · simp
    · have lower := one_le_rawIndex_of_pos positive
      have upper := rawIndex_mono_of_nonneg positive.le below
      omega
  · rename_i oneSided
    by_cases east : 0 ≤ first
    · exact
        ⟨rawIndex_mono_of_nonneg east above,
          rawIndex_mono_of_nonneg (east.trans above) below⟩
    · have west : final < 0 := by
        by_contra notWest
        exact oneSided ⟨not_le.mp east, not_lt.mp notWest⟩
      exact
        ⟨rawIndex_mono_of_neg (below.trans_lt west) above,
          rawIndex_mono_of_neg west below⟩

/-- A quotient east of the origin with a given index, below a quotient of at
least that index. -/
private theorem exists_east {final : ℚ} {value : ℤ}
    (atLeastTwo : 2 ≤ value) (bound : value ≤ rawIndex final)
    (east : 0 < final) :
    1 ≤ (value : ℚ) - 1 ∧ (value : ℚ) - 1 ≤ final ∧
      rawIndex ((value : ℚ) - 1) = value := by
  have castBound : (2 : ℚ) ≤ value := by exact_mod_cast atLeastTwo
  have floorBound : (value : ℚ) - 1 ≤ final := by
    rw [rawIndex_of_pos east] at bound
    have := Int.floor_le final
    have castFloor : (value : ℚ) ≤ (⌊final⌋ : ℚ) + 1 := by
      exact_mod_cast bound
    linarith
  refine ⟨by linarith, floorBound, ?_⟩
  rw [rawIndex_eq_iff_of_pos (by linarith)]
  exact ⟨le_rfl, by linarith⟩

/-- A quotient west of the origin with a given index, above a quotient of at
most that index. -/
private theorem exists_west {first : ℚ} {value : ℤ}
    (atMostZero : value ≤ 0) (bound : rawIndex first ≤ value)
    (west : first < 0) :
    first ≤ (value : ℚ) - 1 ∧ (value : ℚ) - 1 ≤ -1 ∧
      rawIndex ((value : ℚ) - 1) = value := by
  have castBound : (value : ℚ) ≤ 0 := by exact_mod_cast atMostZero
  have ceilBound : first ≤ (value : ℚ) - 1 := by
    rw [rawIndex_of_neg west] at bound
    have := Int.le_ceil first
    have castCeil : (⌈first⌉ : ℚ) + 1 ≤ value := by exact_mod_cast bound
    linarith
  refine ⟨ceilBound, by linarith, ?_⟩
  rw [rawIndex_eq_iff_of_neg (by linarith)]
  exact ⟨by linarith, le_rfl⟩

/-- Every index between the least and the greatest one is taken. -/
theorem exists_rawIndex_eq {first final : ℚ} (ordered : first ≤ final)
    {value : ℤ} (above : leastIndex first final ≤ value)
    (below : value ≤ greatestIndex first final) :
    ∃ div, first ≤ div ∧ div ≤ final ∧ rawIndex div = value := by
  rw [leastIndex] at above
  rw [greatestIndex] at below
  split at above
  · rename_i straddles
    rw [if_pos straddles] at below
    obtain ⟨west, east⟩ := straddles
    rcases lt_trichotomy value 1 with atMostZero | rfl | atLeastTwo
    · rcases (show value ≤ 0 by omega).eq_or_lt with rfl | negative
      · exact ⟨0, west.le, east, rawIndex_zero⟩
      · obtain ⟨lower, upper, index⟩ :=
          exists_west (show value ≤ 0 by omega) (by omega) west
        exact ⟨(value : ℚ) - 1, lower, by linarith, index⟩
    · refine ⟨max first (-1 / 2), le_max_left _ _, ?_, ?_⟩
      · exact max_le ordered (by linarith)
      · have negative : max first (-1 / 2) < 0 :=
          max_lt west (by norm_num)
        have notFar : -1 / 2 ≤ max first (-1 / 2) := le_max_right _ _
        rw [rawIndex_eq_iff_of_neg negative]
        push_cast
        constructor <;> linarith
    · have finalEast : 0 < final := by
        rcases east.eq_or_lt with rfl | positive
        · simp at below
          omega
        · exact positive
      obtain ⟨lower, upper, index⟩ :=
        exists_east (show 2 ≤ value by omega) (by omega) finalEast
      exact ⟨(value : ℚ) - 1, by linarith, upper, index⟩
  · rename_i oneSided
    rw [if_neg oneSided] at below
    by_cases east : 0 ≤ first
    · rcases above.eq_or_lt with rfl | strictlyAbove
      · exact ⟨first, le_rfl, ordered, rfl⟩
      have firstNonneg := rawIndex_nonneg_of_nonneg east
      have finalEast : 0 < final := by
        rcases (east.trans ordered).eq_or_lt with rfl | positive
        · simp at below
          omega
        · exact positive
      by_cases one : value = 1
      · subst one
        have origin : first = 0 := by
          rcases east.eq_or_lt with atOrigin | positive
          · exact atOrigin.symm
          · have := one_le_rawIndex_of_pos positive
            omega
        subst origin
        refine ⟨min final (1 / 2), ?_, min_le_left _ _, ?_⟩
        · exact le_min finalEast.le (by norm_num)
        · have positive : 0 < min final (1 / 2) :=
            lt_min finalEast (by norm_num)
          have near : min final (1 / 2) ≤ 1 / 2 := min_le_right _ _
          rw [rawIndex_eq_iff_of_pos positive]
          push_cast
          constructor <;> linarith
      · obtain ⟨lower, upper, index⟩ :=
          exists_east (show 2 ≤ value by omega) below finalEast
        refine ⟨(value : ℚ) - 1, ?_, upper, index⟩
        rcases east.eq_or_lt with rfl | positive
        · linarith
        · rw [rawIndex_of_pos positive] at strictlyAbove
          have floorLt := Int.lt_floor_add_one first
          have castLt : (⌊first⌋ : ℚ) + 1 + 1 ≤ value := by
            exact_mod_cast strictlyAbove
          linarith
    · have west : final < 0 := by
        by_contra notWest
        exact oneSided ⟨not_le.mp east, not_lt.mp notWest⟩
      rcases below.eq_or_lt with rfl | strictlyBelow
      · exact ⟨final, ordered, le_rfl, rfl⟩
      have finalBound := rawIndex_le_one_of_neg west
      obtain ⟨lower, upper, index⟩ :=
        exists_west (show value ≤ 0 by omega) above
          (ordered.trans_lt west)
      refine ⟨(value : ℚ) - 1, lower, ?_, index⟩
      rw [rawIndex_of_neg west] at strictlyBelow
      have ceilLt := Int.ceil_lt_add_one final
      have castLt : (value : ℚ) + 1 ≤ (⌈final⌉ : ℚ) + 1 := by
        exact_mod_cast strictlyBelow
      linarith

/-! ## When two end points enclose everything between them -/

/-- The end points of an axis enclose the indices of all quotients between
them: either their 16-bit indices are the first and the last one, or nothing
wraps around between them and the way from west to east does not pass the
drop at the origin, except from an index that is itself `0`. -/
def AxisCovered (first final : ℚ) : Prop :=
  (axisIndex first = 0 ∧ axisIndex final = 65535) ∨
    (rawIndex first / 65536 = rawIndex final / 65536 ∧
      (0 ≤ first ∨ final < 0 ∨ (rawIndex first = 0 ∧ 0 < final)))

instance (first final : ℚ) : Decidable (AxisCovered first final) :=
  inferInstanceAs (Decidable (_ ∨ _))

theorem covers_iff {first final : ℚ} (ordered : first ≤ final) :
    (∀ div, first ≤ div → div ≤ final →
        (axisIndex first).toNat ≤ (axisIndex div).toNat ∧
          (axisIndex div).toNat ≤ (axisIndex final).toNat) ↔
      AxisCovered first final := by
  have firstIndex := toNat_axisIndex first
  have finalIndex := toNat_axisIndex final
  have indicesOrdered :
      leastIndex first final ≤ greatestIndex first final := by
    have between := rawIndex_between (le_refl first) ordered
    exact between.1.trans between.2
  have residues :
      (∀ div, first ≤ div → div ≤ final →
          (axisIndex first).toNat ≤ (axisIndex div).toNat ∧
            (axisIndex div).toNat ≤ (axisIndex final).toNat) ↔
        ∀ value : ℤ,
          leastIndex first final ≤ value →
          value ≤ greatestIndex first final →
            rawIndex first % 65536 ≤ value % 65536 ∧
              value % 65536 ≤ rawIndex final % 65536 := by
    constructor
    · intro enclosed value above below
      obtain ⟨div, divAbove, divBelow, rfl⟩ :=
        exists_rawIndex_eq ordered above below
      have bounds := enclosed div divAbove divBelow
      have divIndex := toNat_axisIndex div
      omega
    · intro between div above below
      obtain ⟨lower, upper⟩ := rawIndex_between above below
      have bounds := between (rawIndex div) lower upper
      have divIndex := toNat_axisIndex div
      omega
  have fullWindow :
      (axisIndex first = 0 ∧ axisIndex final = 65535) ↔
        rawIndex first % 65536 ≤ 0 ∧
          65536 - 1 ≤ rawIndex final % 65536 := by
    rw [← UInt16.toNat_inj, ← UInt16.toNat_inj]
    simp only [UInt16.toNat_zero, UInt16.reduceToNat]
    omega
  rw [residues,
    ModularWindow.residues_between_iff (by norm_num) indicesOrdered,
    AxisCovered, fullWindow]
  apply or_congr_right
  rw [leastIndex, greatestIndex]
  split
  · rename_i straddles
    obtain ⟨west, east⟩ := straddles
    have firstBound := rawIndex_le_one_of_neg west
    have finalBound := rawIndex_nonneg_of_nonneg east
    have positive : 0 < final ↔ rawIndex final ≠ 0 := by
      constructor
      · intro finalEast
        have := one_le_rawIndex_of_pos finalEast
        omega
      · intro nonzero
        rcases east.eq_or_lt with rfl | finalEast
        · simp at nonzero
        · exact finalEast
    simp only [not_le.mpr west, not_lt.mpr east, false_or, positive]
    omega
  · rename_i oneSided
    have side : 0 ≤ first ∨ final < 0 := by
      by_contra neither
      push Not at neither
      exact oneSided neither
    constructor
    · intro bounds
      obtain ⟨sameBlock, -, -⟩ := bounds
      exact ⟨sameBlock, side.imp_right Or.inl⟩
    · intro bounds
      obtain ⟨sameBlock, -⟩ := bounds
      exact ⟨sameBlock, le_rfl, le_rfl⟩

/-! ## How many indices two end points enclose -/

theorem le_rawIndex (div : ℚ) : div ≤ rawIndex div := by
  rcases lt_trichotomy div 0 with negative | rfl | positive
  · have bounds := (rawIndex_eq_iff_of_neg negative _).mp rfl
    linarith [bounds.2]
  · simp
  · have bounds := (rawIndex_eq_iff_of_pos positive _).mp rfl
    exact bounds.2.le

theorem rawIndex_le_of_nonneg {div : ℚ} (nonneg : 0 ≤ div) :
    (rawIndex div : ℚ) ≤ div + 1 := by
  rcases nonneg.eq_or_lt with rfl | positive
  · simp
  · have bounds := (rawIndex_eq_iff_of_pos positive _).mp rfl
    linarith [bounds.1]

/-- The raw index grows at most one step more than the quotient. -/
theorem rawIndex_sub_le {first final : ℚ} (ordered : first ≤ final) :
    rawIndex final - rawIndex first ≤ ⌈final - first⌉ + 1 := by
  have extent := Int.le_ceil (final - first)
  by_cases east : 0 ≤ final
  · have upper := rawIndex_le_of_nonneg east
    have lower := le_rawIndex first
    have cast :
        ((rawIndex final - rawIndex first : ℤ) : ℚ) ≤
          ((⌈final - first⌉ + 1 : ℤ) : ℚ) := by
      push_cast
      linarith
    exact_mod_cast cast
  · have finalWest := not_le.mp east
    have upper := (rawIndex_eq_iff_of_neg finalWest _).mp rfl
    have lower :=
      (rawIndex_eq_iff_of_neg (ordered.trans_lt finalWest) _).mp rfl
    have cast :
        ((rawIndex final - rawIndex first : ℤ) : ℚ) ≤
          ((⌈final - first⌉ + 1 : ℤ) : ℚ) := by
      push_cast
      linarith [upper.1, lower.2]
    exact_mod_cast cast

/-- An extent that is not negative encloses few indices, wherever it lies. -/
theorem indexCount_le {first final : ℚ} (ordered : first ≤ final) :
    (((axisIndex final).toNat + 1 - (axisIndex first).toNat : ℕ) : ℤ) ≤
      ⌈final - first⌉ + 2 := by
  have firstIndex := toNat_axisIndex first
  have finalIndex := toNat_axisIndex final
  have extentNonneg : 0 ≤ ⌈final - first⌉ :=
    Int.ceil_nonneg (by linarith)
  have extent := rawIndex_sub_le ordered
  by_cases drop : rawIndex final < rawIndex first
  · have firstWest : first < 0 := by
      by_contra east
      have := rawIndex_mono_of_nonneg (not_lt.mp east) ordered
      omega
    have finalEast : 0 ≤ final := by
      by_contra west
      have := rawIndex_mono_of_neg (not_le.mp west) ordered
      omega
    have firstBound := rawIndex_le_one_of_neg firstWest
    have finalBound := rawIndex_nonneg_of_nonneg finalEast
    omega
  · have span :=
      ModularWindow.residue_span_le (show (0 : ℤ) < 65536 by norm_num)
        (not_lt.mp drop)
    omega

/-! ## Quotients far from the origin -/

/-- Every index occurs at integers beyond any bound, on both sides. -/
theorem exists_axisIndex_eq (bound : ℚ) (value : UInt16) :
    (∃ div : ℚ, bound < div ∧ axisIndex div = value) ∧
      ∃ div : ℚ, div < bound ∧ axisIndex div = value := by
  have valueBound := value.toNat_lt
  have boundLe : |bound| ≤ ⌈|bound|⌉ := Int.le_ceil _
  have ceilNonneg : 0 ≤ ⌈|bound|⌉ := Int.ceil_nonneg (abs_nonneg _)
  have indexOf :
      ∀ turns : ℤ, turns * 65536 + value.toNat - 1 ≠ 0 →
        axisIndex ((turns * 65536 + value.toNat - 1 : ℤ) : ℚ) = value := by
    intro turns notOrigin
    have raw :
        rawIndex ((turns * 65536 + value.toNat - 1 : ℤ) : ℚ) =
          turns * 65536 + value.toNat := by
      rw [rawIndex, if_pos (by exact_mod_cast notOrigin), Rat.num_intCast,
        Rat.den_intCast, Nat.cast_one, Int.tdiv_one]
      omega
    apply UInt16.toNat_inj.mp
    have reduced := toNat_axisIndex
      ((turns * 65536 + value.toNat - 1 : ℤ) : ℚ)
    rw [raw] at reduced
    omega
  constructor
  · refine ⟨_, ?_, indexOf (⌈|bound|⌉ + 1) (by omega)⟩
    have large :
        ⌈|bound|⌉ < (⌈|bound|⌉ + 1) * 65536 + (value.toNat : ℤ) - 1 := by
      omega
    exact
      ((le_abs_self bound).trans boundLe).trans_lt (by exact_mod_cast large)
  · refine ⟨_, ?_, indexOf (-(⌈|bound|⌉ + 2)) (by omega)⟩
    have small :
        (-(⌈|bound|⌉ + 2)) * 65536 + (value.toNat : ℤ) - 1 <
          -⌈|bound|⌉ := by
      omega
    have lower : -(⌈|bound|⌉ : ℚ) ≤ bound :=
      (neg_le_neg boundLe).trans (neg_abs_le bound)
    exact lt_of_lt_of_le (by exact_mod_cast small) lower

/-- Every index occurs at coordinates beyond any bound, on both sides,
whatever the origin and the cell size. -/
theorem exists_coordinate
    (origin : ℚ) {size : ℚ} (notZero : size ≠ 0)
    (bound : ℚ) (value : UInt16) :
    (∃ coordinate, bound < coordinate ∧
        axisIndex ((coordinate - origin) / size) = value) ∧
      ∃ coordinate, coordinate < bound ∧
        axisIndex ((coordinate - origin) / size) = value := by
  have atQuotient :
      ∀ div : ℚ, (origin + size * div - origin) / size = div := by
    intro div
    field_simp
    ring
  obtain ⟨⟨above, isAbove, aboveIndex⟩, below, isBelow, belowIndex⟩ :=
    exists_axisIndex_eq ((bound - origin) / size) value
  rcases lt_or_gt_of_ne notZero with negative | positive
  · rw [div_lt_iff_of_neg negative] at isAbove
    rw [lt_div_iff_of_neg negative] at isBelow
    exact
      ⟨⟨origin + size * below, by linarith, by rwa [atQuotient]⟩,
        origin + size * above, by linarith, by rwa [atQuotient]⟩
  · rw [div_lt_iff₀ positive] at isAbove
    rw [lt_div_iff₀ positive] at isBelow
    exact
      ⟨⟨origin + size * above, by linarith, by rwa [atQuotient]⟩,
        origin + size * below, by linarith, by rwa [atQuotient]⟩

end LocationServer
