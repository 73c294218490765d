import LocationServer.Grid.AxisIndex
import LocationServer.Server

/-!
# The range of the grid arithmetic

`makeCellId` converts a quotient of a coordinate by a cell size to `uint16_t`
and bumps it.  The conversion is defined for quotients whose truncation fits
into sixteen bits only, and the start-up checks no more of `map.origin` and
`map.cell` than that they are numbers.  `AxisReaches` says which coordinates an
axis can place: those less than one cell before the origin and less than 65535
cells behind it, in the direction that the sign of the cell size gives.
-/

namespace LocationServer

/-! ## One axis -/

/-- `uint16_t(div)` and the `++` after it stay within sixteen bits. -/
structure AxisInRange (div : ℚ) : Prop where
  truncated : 0 ≤ div.num.tdiv div.den ∧ div.num.tdiv div.den ≤ 65535
  increment : div ≠ 0 → div.num.tdiv div.den + 1 ≤ 65535

theorem axisInRange_iff_rawIndex (div : ℚ) :
    AxisInRange div ↔
      (div ≠ 0 → 1 ≤ rawIndex div) ∧ rawIndex div ≤ 65535 := by
  by_cases origin : div = 0
  · subst origin
    simp only [rawIndex_zero, ne_eq, not_true_eq_false, false_implies,
      true_and, Int.reduceLE, iff_true]
    exact ⟨by simp, by simp⟩
  · have raw : rawIndex div = div.num.tdiv div.den + 1 := if_pos origin
    constructor
    · intro inRange
      obtain ⟨lower, -⟩ := inRange.truncated
      have upper := inRange.increment origin
      exact ⟨fun _ => by omega, by omega⟩
    · intro bounds
      obtain ⟨lower, upper⟩ := bounds
      have positive := lower origin
      exact ⟨⟨by omega, by omega⟩, fun _ => by omega⟩

theorem axisInRange_iff (div : ℚ) :
    AxisInRange div ↔ -1 < div ∧ div < 65535 := by
  rw [axisInRange_iff_rawIndex]
  rcases lt_trichotomy div 0 with negative | rfl | positive
  · have upper := rawIndex_le_one_of_neg negative
    rw [rawIndex_of_neg negative] at upper ⊢
    have ceiling : 0 ≤ ⌈div⌉ ↔ -1 < div := by
      rw [Int.le_ceil_iff]
      norm_num
    constructor
    · intro bounds
      obtain ⟨lower, -⟩ := bounds
      have := lower negative.ne
      exact ⟨ceiling.mp (by omega), by linarith⟩
    · intro bounds
      have := ceiling.mpr bounds.1
      exact ⟨fun _ => by omega, by omega⟩
  · simp
  · have lower := one_le_rawIndex_of_pos positive
    rw [rawIndex_of_pos positive] at lower ⊢
    have floor : ⌊div⌋ < 65535 ↔ div < 65535 := by
      rw [Int.floor_lt]
      norm_num
    constructor
    · intro bounds
      obtain ⟨-, upper⟩ := bounds
      exact ⟨by linarith, floor.mp (by omega)⟩
    · intro bounds
      have := floor.mpr bounds.2
      exact ⟨fun _ => lower, by omega⟩

/-- A coordinate lies less than one cell before the origin of its axis and
less than 65535 cells behind it. -/
def AxisReaches (origin size coordinate : ℚ) : Prop :=
  (0 < size ∧ origin - size < coordinate ∧
      coordinate < origin + 65535 * size) ∨
    (size < 0 ∧ origin + 65535 * size < coordinate ∧
      coordinate < origin - size)

instance (origin size coordinate : ℚ) :
    Decidable (AxisReaches origin size coordinate) :=
  inferInstanceAs (Decidable (_ ∨ _))

theorem axisReaches_iff (origin size coordinate : ℚ) :
    AxisReaches origin size coordinate ↔
      size ≠ 0 ∧ AxisInRange ((coordinate - origin) / size) := by
  rw [axisInRange_iff, AxisReaches]
  rcases lt_trichotomy size 0 with negative | rfl | positive
  · rw [lt_div_iff_of_neg negative, div_lt_iff_of_neg negative]
    simp only [negative, negative.ne, negative.not_gt, false_and, true_and,
      false_or, ne_eq, not_false_eq_true]
    constructor <;> intro bounds <;> constructor <;> linarith
  · simp
  · rw [lt_div_iff₀ positive, div_lt_iff₀ positive]
    simp only [positive, positive.ne', positive.not_gt, false_and, true_and,
      or_false, ne_eq, not_false_eq_true]
    constructor <;> intro bounds <;> constructor <;> linarith

/-- The coordinates an axis can place have no gaps. -/
theorem axisReaches_between {origin size first final coordinate : ℚ}
    (firstReached : AxisReaches origin size first)
    (finalReached : AxisReaches origin size final)
    (above : first ≤ coordinate) (below : coordinate ≤ final) :
    AxisReaches origin size coordinate := by
  rcases firstReached with ⟨positive, first_lt, _⟩ | ⟨negative, first_lt, _⟩
  · rcases finalReached with ⟨_, _, final_lt⟩ | ⟨negative, _, _⟩
    · exact Or.inl ⟨positive, by linarith, by linarith⟩
    · exact absurd positive negative.not_gt
  · rcases finalReached with ⟨positive, _, _⟩ | ⟨_, _, final_lt⟩
    · exact absurd positive negative.not_gt
    · exact Or.inr ⟨negative, by linarith, by linarith⟩

/-! ## A grid and the points of the globe -/

/-- Longitude and latitude in degrees. -/
structure GeoPoint.OnGlobe (pt : GeoPoint) : Prop where
  lon : -180 ≤ pt.lon ∧ pt.lon ≤ 180
  lat : -90 ≤ pt.lat ∧ pt.lat ≤ 90

namespace GlobalMap.Properties

/-- No step of `makeCellId` leaves its range: both divisors are not zero and
both quotients fit. -/
structure ArithmeticInRange (props : GlobalMap.Properties)
    (pt : GeoPoint) : Prop where
  width : props.cell.width ≠ 0
  height : props.cell.height ≠ 0
  column : AxisInRange ((pt.lon - props.origin.lon) / props.cell.width)
  row : AxisInRange ((pt.lat - props.origin.lat) / props.cell.height)

/-- Both axes can place the point. -/
def Reaches (props : GlobalMap.Properties) (pt : GeoPoint) : Prop :=
  AxisReaches props.origin.lon props.cell.width pt.lon ∧
    AxisReaches props.origin.lat props.cell.height pt.lat

instance (props : GlobalMap.Properties) (pt : GeoPoint) :
    Decidable (props.Reaches pt) :=
  inferInstanceAs (Decidable (_ ∧ _))

theorem arithmeticInRange_iff_reaches {props : GlobalMap.Properties}
    {pt : GeoPoint} :
    props.ArithmeticInRange pt ↔ props.Reaches pt := by
  rw [Reaches, axisReaches_iff, axisReaches_iff]
  constructor
  · intro inRange
    exact
      ⟨⟨inRange.width, inRange.column⟩, inRange.height, inRange.row⟩
  · intro reached
    obtain ⟨⟨width, column⟩, height, row⟩ := reached
    exact ⟨width, height, column, row⟩

/-- The two corners of the globe decide for all its points. -/
theorem reaches_globe_iff (props : GlobalMap.Properties) :
    (∀ pt : GeoPoint, pt.OnGlobe → props.Reaches pt) ↔
      props.Reaches { lon := -180, lat := -90 } ∧
        props.Reaches { lon := 180, lat := 90 } := by
  constructor
  · intro reached
    constructor
    · exact reached _ ⟨by norm_num, by norm_num⟩
    · exact reached _ ⟨by norm_num, by norm_num⟩
  · intro corners pt onGlobe
    obtain ⟨⟨firstColumn, firstRow⟩, finalColumn, finalRow⟩ := corners
    exact
      ⟨axisReaches_between firstColumn finalColumn
          onGlobe.lon.1 onGlobe.lon.2,
        axisReaches_between firstRow finalRow
          onGlobe.lat.1 onGlobe.lat.2⟩

/-- The arithmetic of a grid stays in range at exactly the points that both
axes can place, and at all points of the globe when two corners are. -/
theorem arithmeticInRange_iff (props : GlobalMap.Properties) :
    (∀ pt : GeoPoint, props.ArithmeticInRange pt ↔ props.Reaches pt) ∧
      ((∀ pt : GeoPoint, pt.OnGlobe → props.ArithmeticInRange pt) ↔
        props.Reaches { lon := -180, lat := -90 } ∧
          props.Reaches { lon := 180, lat := 90 }) := by
  constructor
  · intro pt
    exact arithmeticInRange_iff_reaches
  · simp only [arithmeticInRange_iff_reaches]
    exact reaches_globe_iff props

end GlobalMap.Properties

/-- The defaults of `LocServer::init` give the longitude of the built-in
origin to the latitude, so the quotient of a point in the region that the
built-in grid covers is negative; and a cell size of zero is accepted. -/
theorem start_accepts_grids_out_of_range :
    GeoPoint.OnGlobe { lon := 100, lat := 30 } ∧
      (∃ props : GlobalMap.Properties,
          readGrid decimalCast {} = some props ∧
            ({} : GlobalMap.Properties).ArithmeticInRange
              { lon := 100, lat := 30 } ∧
            ¬ props.ArithmeticInRange { lon := 100, lat := 30 }) ∧
      ∃ props : GlobalMap.Properties,
        readGrid decimalCast
            { props := (∅ : Std.TreeMap String String).insert
                "map.cell" "0,0" } = some props ∧
          ∀ pt : GeoPoint, ¬ props.ArithmeticInRange pt := by
  refine ⟨⟨by norm_num, by norm_num⟩, ?_, ?_⟩
  · refine
      ⟨{ origin := { lon := 10, lat := 70 }
         cell := { width := 448 / 10000, height := 448 / 10000 } },
        by decide +kernel, ?_, ?_⟩
    · rw [GlobalMap.Properties.arithmeticInRange_iff_reaches]
      decide +kernel
    · rw [GlobalMap.Properties.arithmeticInRange_iff_reaches]
      decide +kernel
  · refine
      ⟨{ origin := { lon := 10, lat := 70 }
         cell := { width := 0, height := 0 } }, by decide +kernel, ?_⟩
    intro pt inRange
    exact inRange.width rfl

end LocationServer
