import LocationServer.Grid.AxisIndex
import LocationServer.Grid.Records
import LocationServer.Http

/-!
# How many cells an admitted query visits

The region check of the HTTP handler bounds the extents of a query from above
only.  For extents that are not negative this bounds the window of the query,
wherever it lies.  A negative extent passes the check as well and reverses the
corners.  As long as both corners of such an axis lie in the same block of
`2 ^ 16` cell numbers the loop over it ends at once; otherwise the reversed
corners enclose what is left of the blocks between them, which can be almost
the whole axis (`axisSpan`).
-/

namespace LocationServer

/-- The largest number of ids that a region of the given size should take on a
grid with the given cells. -/
def cellBudget (limit : ℚ) (cell : GeoSize) : ℕ :=
  (⌈limit / cell.width⌉.toNat + 2) * (⌈limit / cell.height⌉.toNat + 2)

/-! ## One axis -/

/-- The block of `2 ^ 16` cell numbers that a quotient falls into. -/
def axisBlock (div : ℚ) : ℤ :=
  rawIndex div / 65536

/-- How many cell numbers an axis encloses between two quotients after the
reduction to sixteen bits, when this is positive: each block that the way back
from the first quotient to the final one leaves adds `2 ^ 16`. -/
def axisSpan (first final : ℚ) : ℤ :=
  rawIndex final - rawIndex first + 1 +
    65536 * (axisBlock first - axisBlock final)

/-- The loop over one axis makes as many rounds as the axis spans. -/
theorem axisCount_eq {size : ℚ} (positive : 0 < size)
    (firstDistance finalDistance : ℚ) :
    (indexOfQuotient finalDistance size).toNat + 1 -
        (indexOfQuotient firstDistance size).toNat =
      (axisSpan (firstDistance / size) (finalDistance / size)).toNat := by
  have firstIndex := toNat_axisIndex (firstDistance / size)
  have finalIndex := toNat_axisIndex (finalDistance / size)
  simp only [indexOfQuotient_of_ne_zero positive.ne', axisSpan, axisBlock]
  omega

/-- One axis of a window whose extent is between `0` and `limit`. -/
theorem axisSpan_le_of_nonneg {origin size low extent limit : ℚ}
    (positive : 0 < size) (nonneg : 0 ≤ extent) (limited : extent ≤ limit) :
    (axisSpan ((low - origin) / size)
        ((low + extent - origin) / size)).toNat ≤
      ⌈limit / size⌉.toNat + 2 := by
  have ordered :
      (low - origin) / size ≤ (low + extent - origin) / size :=
    div_le_div_of_nonneg_right (by linarith) positive.le
  have counted := indexCount_le ordered
  have difference :
      (low + extent - origin) / size - (low - origin) / size =
        extent / size := by ring
  have widened : ⌈extent / size⌉ ≤ ⌈limit / size⌉ :=
    Int.ceil_le_ceil (div_le_div_of_nonneg_right limited positive.le)
  rw [difference] at counted
  rw [← axisCount_eq positive]
  simp only [indexOfQuotient_of_ne_zero positive.ne']
  omega

/-- One axis of a window whose corners are reversed within one block. -/
theorem axisSpan_le_of_sameBlock {first final : ℚ}
    (reversed : final ≤ first) (sameBlock : axisBlock first = axisBlock final)
    (bound : ℕ) : (axisSpan first final).toNat ≤ bound + 2 := by
  have := rawIndex_le_succ_of_le reversed
  rw [axisSpan, sameBlock]
  omega

/-! ## Both axes -/

namespace GlobalMap.Properties

/-- The quotient of a longitude. -/
def lonQuotient (props : GlobalMap.Properties) (lon : ℚ) : ℚ :=
  (lon - props.origin.lon) / props.cell.width

/-- The quotient of a latitude. -/
def latQuotient (props : GlobalMap.Properties) (lat : ℚ) : ℚ :=
  (lat - props.origin.lat) / props.cell.height

/-- Some extent of a rectangle is negative, and the corners of that axis lie
in different blocks of cell numbers. -/
def WrapsAround (props : GlobalMap.Properties) (rc : GeoRect) : Prop :=
  (rc.width < 0 ∧
      axisBlock (props.lonQuotient rc.x) ≠
        axisBlock (props.lonQuotient (rc.x + rc.width))) ∨
    (rc.height < 0 ∧
      axisBlock (props.latQuotient rc.y) ≠
        axisBlock (props.latQuotient (rc.y + rc.height)))

instance (props : GlobalMap.Properties) (rc : GeoRect) :
    Decidable (props.WrapsAround rc) :=
  inferInstanceAs (Decidable (_ ∨ _))

/-- An axis spans nothing, or the two span few cells together. -/
def SpansFew (props : GlobalMap.Properties) (rc : GeoRect)
    (budget : ℕ) : Prop :=
  let columns :=
    axisSpan (props.lonQuotient rc.x) (props.lonQuotient (rc.x + rc.width))
  let rows :=
    axisSpan (props.latQuotient rc.y) (props.latQuotient (rc.y + rc.height))
  columns ≤ 0 ∨ rows ≤ 0 ∨ columns * rows ≤ budget

instance (props : GlobalMap.Properties) (rc : GeoRect) (budget : ℕ) :
    Decidable (props.SpansFew rc budget) :=
  inferInstanceAs (Decidable (_ ∨ _ ∨ _))

/-- An axis that does not wrap around spans no more than the limit allows. -/
theorem axisSpan_le {origin size low extent limit : ℚ}
    (positive : 0 < size) (limited : extent ≤ limit)
    (straight :
      ¬(extent < 0 ∧
        axisBlock ((low - origin) / size) ≠
          axisBlock ((low + extent - origin) / size))) :
    (axisSpan ((low - origin) / size)
        ((low + extent - origin) / size)).toNat ≤
      ⌈limit / size⌉.toNat + 2 := by
  by_cases nonneg : 0 ≤ extent
  · exact axisSpan_le_of_nonneg positive nonneg limited
  · have negative := not_le.mp nonneg
    refine axisSpan_le_of_sameBlock ?_ ?_ _
    · exact div_le_div_of_nonneg_right (by linarith) positive.le
    · by_contra different
      exact straight ⟨negative, different⟩

end GlobalMap.Properties

namespace GlobalMap

variable {map : GlobalMap} {rc : GeoRect}

theorem windowIds_length_eq_spans
    (cellWidth : 0 < map.props.cell.width)
    (cellHeight : 0 < map.props.cell.height) :
    (map.windowIds rc).length =
      (axisSpan (map.props.lonQuotient rc.x)
          (map.props.lonQuotient (rc.x + rc.width))).toNat *
        (axisSpan (map.props.latQuotient rc.y)
          (map.props.latQuotient (rc.y + rc.height))).toNat := by
  rw [windowIds_length, Nat.mul_comm]
  exact
    congrArg₂ (· * ·) (axisCount_eq cellWidth _ _)
      (axisCount_eq cellHeight _ _)

/-- A window that does not wrap around stays within the budget. -/
theorem windowIds_length_le_of_straight {limit : ℚ}
    (cellWidth : 0 < map.props.cell.width)
    (cellHeight : 0 < map.props.cell.height)
    (widthLimited : rc.width ≤ limit) (heightLimited : rc.height ≤ limit)
    (straight : ¬map.props.WrapsAround rc) :
    (map.windowIds rc).length ≤ cellBudget limit map.props.cell := by
  obtain ⟨columns, rows⟩ := not_or.mp straight
  rw [windowIds_length_eq_spans cellWidth cellHeight, cellBudget]
  exact
    Nat.mul_le_mul
      (Properties.axisSpan_le cellWidth widthLimited columns)
      (Properties.axisSpan_le cellHeight heightLimited rows)

theorem windowIds_length_le_iff_spansFew
    (cellWidth : 0 < map.props.cell.width)
    (cellHeight : 0 < map.props.cell.height) (budget : ℕ) :
    (map.windowIds rc).length ≤ budget ↔
      map.props.SpansFew rc budget := by
  rw [windowIds_length_eq_spans cellWidth cellHeight, Properties.SpansFew]
  generalize
    axisSpan (map.props.lonQuotient rc.x)
      (map.props.lonQuotient (rc.x + rc.width)) = columns
  generalize
    axisSpan (map.props.latQuotient rc.y)
      (map.props.latQuotient (rc.y + rc.height)) = rows
  by_cases noColumn : columns ≤ 0
  · simp [noColumn, Int.toNat_of_nonpos noColumn]
  · by_cases noRow : rows ≤ 0
    · simp [noRow, Int.toNat_of_nonpos noRow]
    · simp only [noColumn, noRow, false_or]
      lift columns to ℕ using (not_le.mp noColumn).le
      lift rows to ℕ using (not_le.mp noRow).le
      exact_mod_cast Iff.rfl

end GlobalMap

theorem window_extents_le_of_admitted
    {cast : LexicalCast} {maxregion : GeoSize} {vars : String → String}
    {qc : QueryCase}
    (admitted : admitSpatialQuery cast maxregion vars = .ok qc) :
    qc.window.width ≤ maxregion.min ∧
      qc.window.height ≤ maxregion.min := by
  obtain ⟨radius, width, height⟩ :=
    not_regionTooWide_of_admitted admitted
  cases shape : qc.sqt with
  | byDistance =>
      simpa only [QueryCase.window, shape, GeoCircle.box, and_self] using
        radius
  | byRectangle =>
      simpa only [QueryCase.window, shape] using And.intro width height

end LocationServer
